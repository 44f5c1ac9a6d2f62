import PoolGraph.Float.Binary64

/-!
# Shortest decimal digits

`Binary64.shortest` finds the fewest decimal digits that read back as a given positive
number, and of those the nearest to it.  All comparisons are between natural numbers: the
number, the ends of the interval that rounds to it and the points of a decimal grid are
brought to one denominator.
-/

namespace PoolGraph

/-- Which of two equally near decimals is taken. -/
inductive Tie where
  | up
  | even
  deriving DecidableEq

/-- The positive decimal `digits * 10 ^ exponent`. -/
structure Decimal where
  digits : Nat
  exponent : Int
  deriving DecidableEq

/-- The rationals that round to one binary number, all over one denominator: `value` is the
number itself, and the ends `low` and `high` belong to the interval when `closed` holds. -/
structure RoundingInterval where
  low : Nat
  value : Nat
  high : Nat
  denominator : Nat
  closed : Bool

namespace RoundingInterval

/-- The interval of a positive finite magnitude.  Below a power of two the numbers are twice
as dense as above it, so there the lower end is nearer. -/
def ofMagnitude (pattern : Nat) : RoundingInterval :=
  let F := FloatFormat.binary64
  let (m, q) := F.parts pattern
  let below := if m = 2 ^ F.fractionBits && F.leastExponent < q then 1 else 2
  let scale := 2 ^ (q - 2).toNat
  { low := (4 * m - below) * scale
    value := 4 * m * scale
    high := (4 * m + 2) * scale
    denominator := 2 ^ (2 - q).toNat
    closed := m % 2 == 0 }

/-- Whether `candidate * step` over the denominator `1` lies in the interval scaled by `unit`. -/
def admits (I : RoundingInterval) (unit step candidate : Nat) : Bool :=
  let point := candidate * step
  if I.closed then I.low * unit ≤ point && point ≤ I.high * unit
  else I.low * unit < point && point < I.high * unit

/-- The multiple of `10 ^ exponent` in the interval that is nearest to the value: one of the
two neighbours of the value on that grid. -/
def onGrid? (I : RoundingInterval) (tie : Tie) (exponent : Int) : Option Nat :=
  let unit := 10 ^ (-exponent).toNat
  let step := 10 ^ exponent.toNat * I.denominator
  let value := I.value * unit
  let below := value / step
  let above := below + 1
  let twice := 2 * (value % step)
  match I.admits unit step below, I.admits unit step above with
  | true, true =>
    if twice < step then some below
    else if step < twice then some above
    else match tie with
      | .up => some above
      | .even => some (if below % 2 = 0 then below else above)
  | true, false => some below
  | false, true => some above
  | false, false => none

/-- The exponent `k` with `10 ^ k ≤ value < 10 ^ (k + 1)`, from a first guess by the binary
logarithm that is at most one too small. -/
def decimalExponent (I : RoundingInterval) : Int :=
  let log2 : Int := (I.value.log2 : Int) - I.denominator.log2
  let guess := Int.fdiv (log2 * 30103) 100000
  let next := guess + 1
  if 10 ^ next.toNat * I.denominator ≤ I.value * 10 ^ (-next).toNat then next else guess

/-- The decimal on the coarsest grid that meets the interval, of the grids with `used + 1` to
`used + rest` digits. -/
def search (I : RoundingInterval) (tie : Tie) (top : Int) : Nat → Nat → Decimal
  | 0, used => ⟨I.value / I.denominator, top - used⟩
  | rest + 1, used =>
    match I.onGrid? tie (top - used) with
    | some digits => ⟨digits, top - used⟩
    | none => search I tie top rest (used + 1)

end RoundingInterval

/-- The shortest decimal that reads back as the positive finite magnitude; 17 digits always
suffice. -/
def Binary64.shortest (tie : Tie) (magnitude : Nat) : Decimal :=
  let I := RoundingInterval.ofMagnitude magnitude
  I.search tie I.decimalExponent 17 0

end PoolGraph
