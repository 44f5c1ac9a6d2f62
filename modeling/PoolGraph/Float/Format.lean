import PoolGraph.Numbers

/-!
# Binary floating-point formats

A `FloatFormat` packs a magnitude into a bit pattern: an exponent field above a fraction
field, so that larger patterns stand for larger magnitudes.  `FloatFormat.parts` reads the
magnitude `m * 2 ^ q` of a finite pattern, and `FloatFormat.nearest` finds the pattern
closest to `m * 2 ^ q`, a tie going to the even pattern.
-/

namespace PoolGraph

/-- The field widths of a binary interchange format, the sign bit apart. -/
structure FloatFormat where
  fractionBits : Nat
  exponentBits : Nat

namespace FloatFormat

/-- One sign bit, 11 exponent bits and 52 fraction bits. -/
def binary64 : FloatFormat := ⟨52, 11⟩

/-- One sign bit, 8 exponent bits and 23 fraction bits. -/
def binary32 : FloatFormat := ⟨23, 8⟩

/-- The exponent of the smallest positive number, which is `2 ^ leastExponent`. -/
def leastExponent (F : FloatFormat) : Int :=
  2 - 2 ^ (F.exponentBits - 1) - F.fractionBits

/-- The pattern of infinity: every pattern below it is finite, every pattern above it is
not a number. -/
def infinity (F : FloatFormat) : Nat :=
  (2 ^ F.exponentBits - 1) * 2 ^ F.fractionBits

/-- The value of the sign bit. -/
def signBit (F : FloatFormat) : Nat :=
  2 ^ (F.exponentBits + F.fractionBits)

/-- The fraction bit that marks a quiet not-a-number. -/
def quietBit (F : FloatFormat) : Nat :=
  2 ^ (F.fractionBits - 1)

/-- The pair `(m, q)` such that the finite pattern stands for `m * 2 ^ q`. -/
def parts (F : FloatFormat) (pattern : Nat) : Nat × Int :=
  let exponent := pattern / 2 ^ F.fractionBits
  let fraction := pattern % 2 ^ F.fractionBits
  if exponent = 0 then (fraction, F.leastExponent)
  else (2 ^ F.fractionBits + fraction, F.leastExponent + (exponent - 1 : Nat))

/-- The quotient `m / 2 ^ k` rounded to the nearest integer, a tie going to the even one. -/
def roundShift (m k : Nat) : Nat :=
  let floor := m / 2 ^ k
  let twice := 2 * (m % 2 ^ k)
  if 2 ^ k < twice || (twice == 2 ^ k && floor % 2 == 1) then floor + 1 else floor

/-- The pattern nearest to `m * 2 ^ q`, a tie going to the even pattern and magnitudes past
the largest finite one to infinity.  A carry out of the fraction moves the pattern to the next
exponent, since patterns are consecutive. -/
def nearest (F : FloatFormat) (m : Nat) (q : Int) : Nat :=
  if m = 0 then 0
  else
    let exponent := max (q + m.log2 - F.fractionBits) F.leastExponent
    let significand :=
      if exponent ≤ q then m * 2 ^ (q - exponent).toNat
      else roundShift m (exponent - q).toNat
    min (significand + (exponent - F.leastExponent).toNat * 2 ^ F.fractionBits) F.infinity

end FloatFormat

end PoolGraph
