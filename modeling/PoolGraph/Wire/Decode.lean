import PoolGraph.Float.Binary64
import PoolGraph.Wire.Error
import PoolGraph.Wire.LittleEndian
import PoolGraph.Wire.Width

/-!
# Reading primitives

A `Reader` takes values off the front of a list of bytes.  Each function of the namespace
`Decode` reads one primitive.  A reader that fails leaves the bytes it did not take: those of
fixed width take all their bytes or none, the others may stop in the middle.
-/

namespace PoolGraph

/-- A computation on the bytes left to read. -/
abbrev Reader := EStateM CodecError (List UInt8)

namespace Decode

/-- The next byte. -/
def byte : Reader UInt8 := do
  match ← get with
  | [] => throw .endOfData
  | b :: rest =>
    set rest
    return b

/-- The next `n` bytes. -/
def bytes (n : Nat) : Reader (List UInt8) := do
  let input ← get
  let taken := input.take n
  if taken.length < n then throw .endOfData
  else
    set (input.drop n)
    return taken

/-- A boolean, of which the bytes 0 and 1 are the only spellings. -/
def bool : Reader Bool := do
  let b ← byte
  if b = 0 then return false
  else if b = 1 then return true
  else throw (.invalidBool b)

/-- A natural number of `width` bytes. -/
def unsigned (width : Nat) : Reader Nat := do
  return LittleEndian.value (← bytes width)

/-- An integer of `width` bytes in two's complement. -/
def signed (width : Nat) : Reader Int := do
  return Int.bmod (LittleEndian.value (← bytes width)) (256 ^ width)

/-- A single-precision number. -/
def binary32 : Reader Binary32 := do
  return ⟨UInt32.ofNat (← unsigned 4)⟩

/-- A double-precision number. -/
def binary64 : Reader Binary64 := do
  return ⟨UInt64.ofNat (← unsigned 8)⟩

/-- Groups of seven bits, low groups first, of which at most `more` may announce another one.
The last possible group has room for one bit. -/
def groups : Nat → Reader Nat
  | 0 => do
    let b ← byte
    if 1 < b then throw .varIntOverflow else return b.toNat
  | more + 1 => do
    let b ← byte
    if b < 128 then return b.toNat
    else return b.toNat - 128 + 128 * (← groups more)

/-- A variable-length unsigned integer. -/
def varUint : Reader UInt64 := do
  return UInt64.ofNat (← groups 9)

/-- The integer with the given zig-zag number. -/
def unzigzag (n : Nat) : Int :=
  if n % 2 = 0 then n / 2 else -(n / 2) - 1

/-- A variable-length signed integer. -/
def varInt : Reader Int64 := do
  return Int64.ofInt (unzigzag (← groups 9))

/-- A count of four bytes. -/
def count : Reader Nat := do
  let n ← unsigned 4
  if maxCount < n then throw (.countOutOfRange n) else return n

/-- A reference into a pool of `cardinality` objects. -/
def index (cardinality : Nat) : Reader Nat := do
  let i ← unsigned (indexWidth cardinality)
  if i < cardinality then return i else throw (.indexOutOfRange i cardinality)

/-- A string: the count of its bytes, then UTF-8. -/
def string : Reader String := do
  let taken ← bytes (← count)
  match String.fromUTF8? ⟨taken.toArray⟩ with
  | some s => return s
  | none => throw .invalidUtf8

/-- Reads `n` further items in front of which `before` stand in reverse. -/
def manyAfter {ε : Type} (item : EStateM ε (List UInt8) α) :
    Nat → List α → EStateM ε (List UInt8) (List α)
  | 0, before => pure before.reverse
  | n + 1, before => do
    let x ← item
    manyAfter item n (x :: before)

/-- Reads `n` items. -/
def many {ε : Type} (item : EStateM ε (List UInt8) α) (n : Nat) :
    EStateM ε (List UInt8) (List α) :=
  manyAfter item n []

end Decode

end PoolGraph
