import PoolGraph.Float.Format

/-!
# Binary64 and binary32 numbers

`Binary64` and `Binary32` are numbers given by their bits, so that equality is equality of
bits; `Binary64.equals` is the numeric comparison, for which the two zeros agree and nothing
agrees with a not-a-number.  `Binary64.narrow` rounds to binary32 and `Binary32.widen` is
exact.
-/

namespace PoolGraph

/-- A double-precision number, by its bits. -/
structure Binary64 where
  bits : UInt64
  deriving DecidableEq, Inhabited

/-- A single-precision number, by its bits. -/
structure Binary32 where
  bits : UInt32
  deriving DecidableEq, Inhabited

namespace Binary64

/-- Whether the sign bit is set. -/
def isNegative (x : Binary64) : Bool :=
  FloatFormat.binary64.signBit ≤ x.bits.toNat

/-- The pattern without its sign bit. -/
def magnitude (x : Binary64) : Nat :=
  x.bits.toNat % FloatFormat.binary64.signBit

def isNaN (x : Binary64) : Bool :=
  FloatFormat.binary64.infinity < x.magnitude

def isInfinite (x : Binary64) : Bool :=
  x.magnitude == FloatFormat.binary64.infinity

def isFinite (x : Binary64) : Bool :=
  x.magnitude < FloatFormat.binary64.infinity

/-- The number zero, with a positive sign. -/
def zero : Binary64 := ⟨0⟩

/-- Numeric equality. -/
def equals (x y : Binary64) : Bool :=
  !x.isNaN && !y.isNaN && (x.bits == y.bits || (x.magnitude == 0 && y.magnitude == 0))

/-- The number nearest to `n`, which is infinite from half a step past the largest one. -/
def ofNat (n : Nat) : Binary64 :=
  ⟨UInt64.ofNat (FloatFormat.binary64.nearest n 0)⟩

/-- Rounding to single precision.  The sign is kept, and of a not-a-number the high part of
its payload. -/
def narrow (x : Binary64) : Binary32 :=
  let F := FloatFormat.binary32
  let pattern :=
    if x.isNaN then
      F.infinity + F.quietBit + x.magnitude % FloatFormat.binary64.quietBit / 2 ^ 29
    else if x.isInfinite then F.infinity
    else
      let (m, q) := FloatFormat.binary64.parts x.magnitude
      F.nearest m q
  ⟨UInt32.ofNat (pattern + if x.isNegative then F.signBit else 0)⟩

end Binary64

namespace Binary32

/-- Whether the sign bit is set. -/
def isNegative (x : Binary32) : Bool :=
  FloatFormat.binary32.signBit ≤ x.bits.toNat

/-- The pattern without its sign bit. -/
def magnitude (x : Binary32) : Nat :=
  x.bits.toNat % FloatFormat.binary32.signBit

def isFinite (x : Binary32) : Bool :=
  x.magnitude < FloatFormat.binary32.infinity

/-- The same number in double precision. -/
def widen (x : Binary32) : Binary64 :=
  let F := FloatFormat.binary64
  let G := FloatFormat.binary32
  let pattern :=
    if G.infinity < x.magnitude then
      F.infinity + F.quietBit + x.magnitude % G.quietBit * 2 ^ 29
    else if x.magnitude = G.infinity then F.infinity
    else
      let (m, q) := G.parts x.magnitude
      F.nearest m q
  ⟨UInt64.ofNat (pattern + if x.isNegative then F.signBit else 0)⟩

end Binary32

end PoolGraph
