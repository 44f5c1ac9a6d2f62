import Mathlib.Tactic.Use
import PoolGraph.Float.Binary64

/-!
# Rounding what is exact

`FloatFormat.nearest` depends on the number `m * 2 ^ q` alone (`nearest_scale`), and the
pattern nearest to what a finite pattern stands for is that pattern (`nearest_parts`).  So
widening a single-precision number loses nothing: `Binary32.narrow_widen` takes every number
back, and of the not-a-numbers those that are quiet.
-/

namespace PoolGraph

namespace FloatFormat

/-! ### One number, several pairs -/

/-- Doubling a number moves its highest bit by one. -/
theorem log2_mul_two_pow {m : Nat} (hm : m ≠ 0) (k : Nat) :
  (m * 2 ^ k).log2 = m.log2 + k
  := by
  have hk : m * 2 ^ k ≠ 0 := Nat.mul_ne_zero hm (Nat.ne_of_gt (Nat.two_pow_pos k))
  apply (Nat.log2_eq_iff hk).mpr
  constructor
  · rw [Nat.pow_add]
    apply Nat.mul_le_mul_right _ (Nat.log2_self_le hm)
  · rw [Nat.add_right_comm, Nat.pow_add]
    apply Nat.mul_lt_mul_of_pos_right Nat.lt_log2_self (Nat.two_pow_pos k)

/-- Bits put behind a number and shifted out again do not change its rounding. -/
theorem roundShift_scale (m k j : Nat) :
  roundShift (m * 2 ^ k) (j + k) = roundShift m j
  := by
  have hk : 0 < 2 ^ k := Nat.two_pow_pos k
  have floor : m * 2 ^ k / 2 ^ (j + k) = m / 2 ^ j := by
    rw [Nat.pow_add, Nat.mul_div_mul_right _ _ hk]
  have twice : 2 * (m * 2 ^ k % 2 ^ (j + k)) = 2 * (m % 2 ^ j) * 2 ^ k := by
    rw [Nat.pow_add, Nat.mul_mod_mul_right, Nat.mul_assoc]
  have above : 2 ^ (j + k) < 2 * (m % 2 ^ j) * 2 ^ k ↔ 2 ^ j < 2 * (m % 2 ^ j) := by
    rw [Nat.pow_add, Nat.mul_lt_mul_right hk]
  have tie : 2 * (m % 2 ^ j) * 2 ^ k = 2 ^ (j + k) ↔ 2 * (m % 2 ^ j) = 2 ^ j := by
    rw [Nat.pow_add, Nat.mul_left_inj (Nat.ne_of_gt hk)]
  simp only [roundShift, floor, twice, above, Bool.beq_eq_decide_eq, tie]

/-- Shifting out only the bits that were put behind rounds nothing. -/
theorem roundShift_exact (m : Nat) {j k : Nat} (h : j ≤ k) :
  roundShift (m * 2 ^ k) j = m * 2 ^ (k - j)
  := by
  obtain ⟨i, rfl⟩ := Nat.exists_eq_add_of_le h
  have hj : 0 < 2 ^ j := Nat.two_pow_pos j
  have split : m * 2 ^ (j + i) = 2 ^ j * (m * 2 ^ i) := by
    rw [Nat.pow_add, Nat.mul_left_comm]
  have floor : 2 ^ j * (m * 2 ^ i) / 2 ^ j = m * 2 ^ i := Nat.mul_div_cancel_left _ hj
  have rest : 2 ^ j * (m * 2 ^ i) % 2 ^ j = 0 := Nat.mul_mod_right _ _
  have small : ¬ 2 ^ j < 2 * 0 := by omega
  have apart : (2 * 0 == 2 ^ j) = false := by
    apply beq_false_of_ne
    omega
  rw [split, Nat.add_sub_cancel_left]
  simp only [roundShift, floor, rest, small, apart, decide_false, Bool.false_and, Bool.or_false,
    Bool.false_eq_true, if_false]

/-- The nearest pattern depends on the number alone, not on how it is written. -/
theorem nearest_scale (F : FloatFormat) (m k : Nat) (q : Int) :
  F.nearest (m * 2 ^ k) (q - k) = F.nearest m q
  := by
  by_cases hm : m = 0
  · subst hm
    simp [nearest]
  have hmk : m * 2 ^ k ≠ 0 := Nat.mul_ne_zero hm (Nat.ne_of_gt (Nat.two_pow_pos k))
  have same : q - k + ((m * 2 ^ k).log2 : Int) - F.fractionBits = q + m.log2 - F.fractionBits := by
    rw [log2_mul_two_pow hm]
    omega
  simp only [nearest, hm, hmk, if_false, same]
  generalize max (q + (m.log2 : Int) - F.fractionBits) F.leastExponent = e
  congr 2
  by_cases h₁ : e ≤ q - k
  · have h₂ : e ≤ q := by omega
    have shift : (q - e).toNat = (q - k - e).toNat + k := by omega
    rw [if_pos h₁, if_pos h₂, shift, Nat.pow_add, Nat.mul_assoc, Nat.mul_comm (2 ^ k)]
  · by_cases h₂ : e ≤ q
    · have shift : (q - e).toNat = k - (e - (q - k)).toNat := by omega
      rw [if_neg h₁, if_pos h₂, roundShift_exact _ (by omega), shift]
    · have shift : (e - (q - k)).toNat = (e - q).toNat + k := by omega
      rw [if_neg h₁, if_neg h₂, shift, roundShift_scale]

/-- The nearest pattern to what a finite pattern stands for is that pattern. -/
theorem nearest_parts (F : FloatFormat) {x : Nat} (hx : x < F.infinity) :
  F.nearest (F.parts x).1 (F.parts x).2 = x
  := by
  have hp : 0 < 2 ^ F.fractionBits := Nat.two_pow_pos _
  have whole := Nat.div_add_mod x (2 ^ F.fractionBits)
  have fraction := Nat.mod_lt x hp
  by_cases hexp : x / 2 ^ F.fractionBits = 0
  · -- a subnormal pattern is its own fraction
    have hmod : x % 2 ^ F.fractionBits = x := by
      rw [hexp] at whole
      omega
    simp only [parts, hexp, if_true, hmod]
    by_cases hzero : x = 0
    · simp [nearest, hzero]
    have hlog : x.log2 < F.fractionBits := (Nat.log2_lt hzero).mpr (by omega)
    have least : max (F.leastExponent + (x.log2 : Int) - F.fractionBits) F.leastExponent
        = F.leastExponent := by omega
    simp only [nearest, hzero, if_false, least, Int.le_refl, if_true, Int.sub_self, Int.toNat_zero,
      Nat.pow_zero, Nat.mul_one, Nat.zero_mul, Nat.add_zero]
    omega
  · -- a normal pattern has the hidden bit above its fraction
    have hm : 2 ^ F.fractionBits + x % 2 ^ F.fractionBits ≠ 0 := by omega
    have hlog : (2 ^ F.fractionBits + x % 2 ^ F.fractionBits).log2 = F.fractionBits := by
      apply (Nat.log2_eq_iff hm).mpr
      rw [Nat.pow_succ]
      omega
    obtain ⟨t, ht⟩ := Nat.exists_eq_succ_of_ne_zero hexp
    have same : max (F.leastExponent + (t : Int) + (F.fractionBits : Int) - F.fractionBits)
        F.leastExponent = F.leastExponent + t := by omega
    have shift : (F.leastExponent + (t : Int) - F.leastExponent).toNat = t := by omega
    have value : 2 ^ F.fractionBits + x % 2 ^ F.fractionBits + t * 2 ^ F.fractionBits = x := by
      rw [ht, Nat.mul_succ, Nat.mul_comm] at whole
      omega
    simp only [parts, ht, Nat.succ_ne_zero, if_false, Nat.succ_sub_one, nearest, hm, hlog, same,
      Int.le_refl, if_true, Int.sub_self, Int.toNat_zero, Nat.pow_zero, Nat.mul_one, shift, value]
    omega

/-- The pattern of a number with room in the fraction and in the exponent: the leading bit moves
to the place of the hidden one. -/
theorem nearest_normal (F : FloatFormat) {m : Nat} {q : Int} (hm : m ≠ 0)
    (fits : m.log2 ≤ F.fractionBits) (low : F.leastExponent ≤ q + m.log2 - F.fractionBits)
    (high : (q + m.log2 - F.fractionBits - F.leastExponent).toNat + 2 < 2 ^ F.exponentBits) :
  ∃ f t : Nat, f < 2 ^ F.fractionBits ∧ t + 2 < 2 ^ F.exponentBits
    ∧ m * 2 ^ (F.fractionBits - m.log2) = 2 ^ F.fractionBits + f
    ∧ q - (F.fractionBits - m.log2 : Nat) = F.leastExponent + t
    ∧ F.nearest m q = f + 2 ^ F.fractionBits * (t + 1)
  := by
  obtain ⟨k, hk⟩ := Nat.exists_eq_add_of_le fits
  obtain ⟨t, ht⟩ : ∃ t : Nat, q - k = F.leastExponent + t :=
    ⟨(q - k - F.leastExponent).toNat, by omega⟩
  have rest : F.fractionBits - m.log2 = k := by omega
  have exponent : max (q + (m.log2 : Int) - F.fractionBits) F.leastExponent = q - k := by omega
  have shift : (q - (q - (k : Int))).toNat = k := by omega
  have steps : (q - (k : Int) - F.leastExponent).toNat = t := by omega
  -- the significand has exactly the bits of a normal one
  have hs : m * 2 ^ k ≠ 0 := Nat.mul_ne_zero hm (Nat.ne_of_gt (Nat.two_pow_pos k))
  obtain ⟨atLeast, below⟩ := (Nat.log2_eq_iff hs).mp ((log2_mul_two_pow hm k).trans hk.symm)
  obtain ⟨f, hf⟩ := Nat.exists_eq_add_of_le atLeast
  have hfp : f < 2 ^ F.fractionBits := by
    rw [Nat.pow_succ] at below
    omega
  have room : (t + 2) * 2 ^ F.fractionBits ≤ F.infinity := by
    apply Nat.mul_le_mul_right
    omega
  have finite : 2 ^ F.fractionBits + f + t * 2 ^ F.fractionBits ≤ F.infinity := by
    rw [Nat.add_mul] at room
    omega
  use f, t, hfp
  constructor
  · omega
  constructor
  · rw [rest, hf]
  constructor
  · rw [rest, ht]
  simp only [nearest, hm, if_false, exponent, show q - (k : Int) ≤ q by omega, if_true, shift,
    hf, steps, Nat.min_eq_left finite]
  rw [Nat.mul_succ, Nat.mul_comm t]
  omega

/-- A number whose exponent is below the largest one is rounded to a finite pattern. -/
theorem nearest_lt_infinity (F : FloatFormat) {m : Nat} {q : Int} (hm : m ≠ 0)
    (fits : m.log2 ≤ F.fractionBits) (low : F.leastExponent ≤ q + m.log2 - F.fractionBits)
    (high : (q + m.log2 - F.fractionBits - F.leastExponent).toNat + 2 < 2 ^ F.exponentBits) :
  F.nearest m q < F.infinity
  := by
  obtain ⟨f, t, hf, ht, -, -, pattern⟩ := F.nearest_normal hm fits low high
  have room : 2 ^ F.fractionBits * (t + 2) ≤ F.infinity := by
    rw [infinity, Nat.mul_comm]
    apply Nat.mul_le_mul_right
    omega
  rw [Nat.mul_succ] at room
  omega

/-- The pattern of such a number stands for the number. -/
theorem parts_nearest (F : FloatFormat) {m : Nat} {q : Int} (hm : m ≠ 0)
    (fits : m.log2 ≤ F.fractionBits) (low : F.leastExponent ≤ q + m.log2 - F.fractionBits)
    (high : (q + m.log2 - F.fractionBits - F.leastExponent).toNat + 2 < 2 ^ F.exponentBits) :
  F.parts (F.nearest m q)
    = (m * 2 ^ (F.fractionBits - m.log2), q - (F.fractionBits - m.log2 : Nat))
  := by
  obtain ⟨f, t, hf, -, significand, exponent, pattern⟩ := F.nearest_normal hm fits low high
  have hp : 0 < 2 ^ F.fractionBits := Nat.two_pow_pos _
  have upper : F.nearest m q / 2 ^ F.fractionBits = t + 1 := by
    rw [pattern, Nat.add_mul_div_left _ _ hp, Nat.div_eq_of_lt hf, Nat.zero_add]
  have lower : F.nearest m q % 2 ^ F.fractionBits = f := by
    rw [pattern, Nat.add_mul_mod_self_left, Nat.mod_eq_of_lt hf]
  simp only [parts, upper, lower, Nat.succ_ne_zero, if_false, Nat.add_sub_cancel, significand,
    exponent]

/-- No number is rounded beyond infinity. -/
theorem nearest_le_infinity (F : FloatFormat) (m : Nat) (q : Int) :
  F.nearest m q ≤ F.infinity
  := by
  unfold nearest
  split
  · apply Nat.zero_le
  · apply Nat.min_le_right

/-- The number of a finite pattern is small enough to widen. -/
theorem parts_binary32_bounds {x : Nat} (hx : x < binary32.infinity)
    (hm : (binary32.parts x).1 ≠ 0) :
  (binary32.parts x).1.log2 ≤ 23 ∧ -149 ≤ (binary32.parts x).2 ∧ (binary32.parts x).2 ≤ 104
  := by
  have least : binary32.leastExponent = -149 := by decide
  have top : binary32.infinity = 255 * 2 ^ 23 := by decide
  have width : binary32.fractionBits = 23 := rfl
  have log : (binary32.parts x).1.log2 < 24 := by
    apply (Nat.log2_lt hm).mpr
    simp only [parts, width]
    split <;> simp only <;> omega
  have exponent : -149 ≤ (binary32.parts x).2 ∧ (binary32.parts x).2 ≤ 104 := by
    simp only [parts, width, least]
    split <;> simp only <;> omega
  omega

/-- Rounding to binary64 and then to binary32 gives back a binary32 pattern. -/
theorem nearest_parts_nearest {x : Nat} (hx : x < binary32.infinity) :
  let wide := binary64.nearest (binary32.parts x).1 (binary32.parts x).2
  wide < binary64.infinity ∧ binary32.nearest (binary64.parts wide).1 (binary64.parts wide).2 = x
  := by
  have back := binary32.nearest_parts hx
  by_cases hm : (binary32.parts x).1 = 0
  · simp only [nearest, hm, if_true] at back ⊢
    rw [← back]
    decide
  obtain ⟨log, lowest, highest⟩ := parts_binary32_bounds hx hm
  have least : binary64.leastExponent = -1074 := by decide
  have width : binary64.fractionBits = 52 := rfl
  have fits : (binary32.parts x).1.log2 ≤ binary64.fractionBits := by omega
  have low : binary64.leastExponent
      ≤ (binary32.parts x).2 + (binary32.parts x).1.log2 - binary64.fractionBits := by omega
  have high : ((binary32.parts x).2 + (binary32.parts x).1.log2 - binary64.fractionBits
      - binary64.leastExponent).toNat + 2 < 2 ^ binary64.exponentBits := by
    rw [show 2 ^ binary64.exponentBits = 2048 from rfl]
    omega
  constructor
  · apply nearest_lt_infinity binary64 hm fits low high
  · rw [parts_nearest binary64 hm fits low high, nearest_scale, back]

end FloatFormat

/-! ### Signs -/

namespace Binary64

/-- The only pattern that a not-a-number is written with: positive, quiet and without payload. -/
def IsCanonical (x : Binary64) : Prop :=
  x.isNaN = true → x.bits = 0x7FF8000000000000

instance (x : Binary64) : Decidable x.IsCanonical :=
  inferInstanceAs (Decidable (x.isNaN = true → x.bits = 0x7FF8000000000000))

/-- A pattern below the sign bit is its own magnitude. -/
theorem magnitude_mk {pattern : Nat} (h : pattern < FloatFormat.binary64.signBit) (s : Bool) :
  magnitude ⟨UInt64.ofNat (pattern + if s then FloatFormat.binary64.signBit else 0)⟩ = pattern
  := by
  have size : FloatFormat.binary64.signBit = 2 ^ 63 := by decide
  simp only [magnitude, UInt64.toNat_ofNat', size] at h ⊢
  cases s <;> simp <;> omega

/-- The sign bit alone decides the sign. -/
theorem isNegative_mk {pattern : Nat} (h : pattern < FloatFormat.binary64.signBit) (s : Bool) :
  isNegative ⟨UInt64.ofNat (pattern + if s then FloatFormat.binary64.signBit else 0)⟩ = s
  := by
  have size : FloatFormat.binary64.signBit = 2 ^ 63 := by decide
  simp only [isNegative, UInt64.toNat_ofNat', size] at h ⊢
  cases s <;> simp <;> omega

/-- A number is its magnitude and its sign. -/
theorem ext_magnitude {x y : Binary64} (hm : x.magnitude = y.magnitude)
    (hs : x.isNegative = y.isNegative) :
  x = y
  := by
  obtain ⟨⟨a⟩⟩ := x
  obtain ⟨⟨b⟩⟩ := y
  have size : FloatFormat.binary64.signBit = 2 ^ 63 := by decide
  have ha := a.isLt
  have hb := b.isLt
  simp only [magnitude, isNegative, size, UInt64.toNat, decide_eq_decide] at hm hs
  congr
  apply BitVec.eq_of_toNat_eq
  omega

end Binary64

namespace Binary32

/-- The only pattern that a not-a-number is written with: positive, quiet and without payload. -/
def IsCanonical (y : Binary32) : Prop :=
  FloatFormat.binary32.infinity < y.magnitude → y.bits = 0x7FC00000

/-- A magnitude leaves the sign bit free. -/
theorem magnitude_lt (y : Binary32) :
  y.magnitude < FloatFormat.binary32.signBit
  := Nat.mod_lt _ (by decide)

/-- A pattern below the sign bit is its own magnitude. -/
theorem magnitude_mk {pattern : Nat} (h : pattern < FloatFormat.binary32.signBit) (s : Bool) :
  magnitude ⟨UInt32.ofNat (pattern + if s then FloatFormat.binary32.signBit else 0)⟩ = pattern
  := by
  have size : FloatFormat.binary32.signBit = 2 ^ 31 := by decide
  simp only [magnitude, UInt32.toNat_ofNat', size] at h ⊢
  cases s <;> simp <;> omega

/-- The sign bit alone decides the sign. -/
theorem isNegative_mk {pattern : Nat} (h : pattern < FloatFormat.binary32.signBit) (s : Bool) :
  isNegative ⟨UInt32.ofNat (pattern + if s then FloatFormat.binary32.signBit else 0)⟩ = s
  := by
  have size : FloatFormat.binary32.signBit = 2 ^ 31 := by decide
  simp only [isNegative, UInt32.toNat_ofNat', size] at h ⊢
  cases s <;> simp <;> omega

/-- A number is its magnitude and its sign. -/
theorem ext_magnitude {x y : Binary32} (hm : x.magnitude = y.magnitude)
    (hs : x.isNegative = y.isNegative) :
  x = y
  := by
  obtain ⟨⟨a⟩⟩ := x
  obtain ⟨⟨b⟩⟩ := y
  have size : FloatFormat.binary32.signBit = 2 ^ 31 := by decide
  have ha := a.isLt
  have hb := b.isLt
  simp only [magnitude, isNegative, size, UInt32.toNat, decide_eq_decide] at hm hs
  congr
  apply BitVec.eq_of_toNat_eq
  omega

end Binary32

/-! ### Widening and back -/

namespace Binary32

/-- The magnitude of a widened number. -/
def widenedMagnitude (g : Nat) : Nat :=
  if FloatFormat.binary32.infinity < g then
    FloatFormat.binary64.infinity + FloatFormat.binary64.quietBit
      + g % FloatFormat.binary32.quietBit * 2 ^ 29
  else if g = FloatFormat.binary32.infinity then FloatFormat.binary64.infinity
  else FloatFormat.binary64.nearest (FloatFormat.binary32.parts g).1
    (FloatFormat.binary32.parts g).2

/-- A widened magnitude leaves the sign bit free. -/
theorem widenedMagnitude_lt (g : Nat) :
  widenedMagnitude g < FloatFormat.binary64.signBit
  := by
  have top : FloatFormat.binary64.infinity = 2047 * 2 ^ 52 := by decide
  have quiet : FloatFormat.binary64.quietBit = 2 ^ 51 := by decide
  have size : FloatFormat.binary64.signBit = 2 ^ 63 := by decide
  have quiet' : FloatFormat.binary32.quietBit = 2 ^ 22 := by decide
  have finite := FloatFormat.binary64.nearest_le_infinity (FloatFormat.binary32.parts g).1
    (FloatFormat.binary32.parts g).2
  unfold widenedMagnitude
  split
  · rw [quiet']
    omega
  · split <;> omega

/-- Widening a number widens its magnitude. -/
theorem magnitude_widen (y : Binary32) :
  y.widen.magnitude = widenedMagnitude y.magnitude
  := Binary64.magnitude_mk (widenedMagnitude_lt _) _

/-- Widening keeps the sign. -/
theorem isNegative_widen (y : Binary32) :
  y.widen.isNegative = y.isNegative
  := Binary64.isNegative_mk (widenedMagnitude_lt _) _

end Binary32

namespace Binary64

/-- The magnitude of a number rounded to single precision. -/
def narrowedMagnitude (g : Nat) : Nat :=
  if FloatFormat.binary64.infinity < g then
    FloatFormat.binary32.infinity + FloatFormat.binary32.quietBit
      + g % FloatFormat.binary64.quietBit / 2 ^ 29
  else if g = FloatFormat.binary64.infinity then FloatFormat.binary32.infinity
  else FloatFormat.binary32.nearest (FloatFormat.binary64.parts g).1
    (FloatFormat.binary64.parts g).2

/-- A narrowed magnitude leaves the sign bit free. -/
theorem narrowedMagnitude_lt (g : Nat) :
  narrowedMagnitude g < FloatFormat.binary32.signBit
  := by
  have top : FloatFormat.binary32.infinity = 255 * 2 ^ 23 := by decide
  have quiet : FloatFormat.binary32.quietBit = 2 ^ 22 := by decide
  have size : FloatFormat.binary32.signBit = 2 ^ 31 := by decide
  have quiet' : FloatFormat.binary64.quietBit = 2 ^ 51 := by decide
  have finite := FloatFormat.binary32.nearest_le_infinity (FloatFormat.binary64.parts g).1
    (FloatFormat.binary64.parts g).2
  unfold narrowedMagnitude
  split
  · rw [quiet']
    omega
  · split <;> omega

/-- Narrowing narrows the magnitude and keeps the sign bit. -/
theorem narrow_eq (x : Binary64) :
  x.narrow = ⟨UInt32.ofNat (narrowedMagnitude x.magnitude
    + if x.isNegative then FloatFormat.binary32.signBit else 0)⟩
  := by
  simp only [narrow, narrowedMagnitude, isNaN, isInfinite, decide_eq_true_eq, beq_iff_eq]

/-- Narrowing a number narrows its magnitude. -/
theorem magnitude_narrow (x : Binary64) :
  x.narrow.magnitude = narrowedMagnitude x.magnitude
  := by
  rw [narrow_eq]
  apply Binary32.magnitude_mk (narrowedMagnitude_lt _)

/-- Narrowing keeps the sign. -/
theorem isNegative_narrow (x : Binary64) :
  x.narrow.isNegative = x.isNegative
  := by
  rw [narrow_eq]
  apply Binary32.isNegative_mk (narrowedMagnitude_lt _)

end Binary64

namespace Binary32

/-- A magnitude that is a number comes back from widening. -/
theorem narrowedMagnitude_widenedMagnitude {g : Nat} (hg : g ≤ FloatFormat.binary32.infinity) :
  Binary64.narrowedMagnitude (widenedMagnitude g) = g
  := by
  by_cases inf : g = FloatFormat.binary32.infinity
  · subst inf
    decide
  have finite : g < FloatFormat.binary32.infinity := by omega
  obtain ⟨wide, back⟩ := FloatFormat.nearest_parts_nearest finite
  have value : widenedMagnitude g = FloatFormat.binary64.nearest (FloatFormat.binary32.parts g).1
      (FloatFormat.binary32.parts g).2 := by
    rw [widenedMagnitude, if_neg (by omega), if_neg inf]
  rw [value, Binary64.narrowedMagnitude, if_neg (by omega), if_neg (by omega), back]

/-- Widening keeps the payload of a not-a-number and makes it quiet, and so does a second one. -/
theorem widenedMagnitude_narrowedMagnitude_widenedMagnitude (g : Nat) :
  widenedMagnitude (Binary64.narrowedMagnitude (widenedMagnitude g)) = widenedMagnitude g
  := by
  by_cases hg : g ≤ FloatFormat.binary32.infinity
  · rw [narrowedMagnitude_widenedMagnitude hg]
  have top : FloatFormat.binary32.infinity = 255 * 2 ^ 23 := by decide
  have quiet : FloatFormat.binary32.quietBit = 2 ^ 22 := by decide
  have top' : FloatFormat.binary64.infinity = 2047 * 2 ^ 52 := by decide
  have quiet' : FloatFormat.binary64.quietBit = 2 ^ 51 := by decide
  have wide : widenedMagnitude g = 2047 * 2 ^ 52 + 2 ^ 51 + g % 2 ^ 22 * 2 ^ 29 := by
    rw [widenedMagnitude, if_pos (by omega), top', quiet, quiet']
  have payload : (2047 * 2 ^ 52 + 2 ^ 51 + g % 2 ^ 22 * 2 ^ 29) % 2 ^ 51 / 2 ^ 29 = g % 2 ^ 22 := by
    omega
  have narrow : Binary64.narrowedMagnitude (widenedMagnitude g)
      = 255 * 2 ^ 23 + 2 ^ 22 + g % 2 ^ 22 := by
    rw [wide, Binary64.narrowedMagnitude, if_pos (by omega), top, quiet, quiet', payload]
  rw [narrow, wide, widenedMagnitude, if_pos (by omega), top', quiet, quiet']
  omega

/-- What was widened once is rounded to itself. -/
theorem widen_narrow_widen (y : Binary32) :
  y.widen.narrow.widen = y.widen
  := by
  apply Binary64.ext_magnitude
  · rw [magnitude_widen, Binary64.magnitude_narrow, magnitude_widen,
      widenedMagnitude_narrowedMagnitude_widenedMagnitude]
  · rw [isNegative_widen, Binary64.isNegative_narrow]

/-- Widening keeps apart the canonical not-a-number and all others. -/
theorem isCanonical_widen (y : Binary32) :
  y.widen.IsCanonical ↔ y.IsCanonical
  := by
  have top : FloatFormat.binary32.infinity = 255 * 2 ^ 23 := by decide
  have quiet : FloatFormat.binary32.quietBit = 2 ^ 22 := by decide
  have size : FloatFormat.binary32.signBit = 2 ^ 31 := by decide
  have top' : FloatFormat.binary64.infinity = 2047 * 2 ^ 52 := by decide
  have quiet' : FloatFormat.binary64.quietBit = 2 ^ 51 := by decide
  have bound := y.magnitude_lt
  by_cases number : y.magnitude ≤ FloatFormat.binary32.infinity
  · have wide : widenedMagnitude y.magnitude ≤ FloatFormat.binary64.infinity := by
      have finite := FloatFormat.binary64.nearest_le_infinity
        (FloatFormat.binary32.parts y.magnitude).1 (FloatFormat.binary32.parts y.magnitude).2
      rw [widenedMagnitude, if_neg (by omega)]
      split <;> omega
    simp only [Binary64.IsCanonical, IsCanonical, Binary64.isNaN, magnitude_widen,
      decide_eq_true_eq, Nat.not_lt.mpr wide, Nat.not_lt.mpr number, false_implies]
  have wide : widenedMagnitude y.magnitude
      = 2047 * 2 ^ 52 + 2 ^ 51 + y.magnitude % 2 ^ 22 * 2 ^ 29 := by
    rw [widenedMagnitude, if_pos (by omega), top', quiet, quiet']
  constructor
  · intro h hy
    have bits := h (by
      simp only [Binary64.isNaN, magnitude_widen, wide, top', decide_eq_true_eq]
      omega)
    have value : y.widen = ⟨0x7FF8000000000000⟩ := congrArg Binary64.mk bits
    have payload : widenedMagnitude y.magnitude = 2047 * 2 ^ 52 + 2 ^ 51 := by
      rw [← magnitude_widen, value]
      decide
    have sign : y.isNegative = false := by
      rw [← isNegative_widen, value]
      decide
    have same : y = ⟨0x7FC00000⟩ := by
      apply ext_magnitude
      · rw [show magnitude ⟨0x7FC00000⟩ = 255 * 2 ^ 23 + 2 ^ 22 by decide]
        omega
      · rw [sign]
        decide
    rw [same]
  · intro h _
    have same : y = ⟨0x7FC00000⟩ := congrArg Binary32.mk (h (by omega))
    rw [same]
    decide

/-- A single-precision number comes back from widening. -/
theorem narrow_widen {y : Binary32} (h : y.IsCanonical) :
  y.widen.narrow = y
  := by
  by_cases number : y.magnitude ≤ FloatFormat.binary32.infinity
  · apply ext_magnitude
    · rw [Binary64.magnitude_narrow, magnitude_widen, narrowedMagnitude_widenedMagnitude number]
    · rw [Binary64.isNegative_narrow, isNegative_widen]
  · have same : y = ⟨0x7FC00000⟩ := congrArg Binary32.mk (h (by omega))
    rw [same]
    decide

end Binary32

end PoolGraph
