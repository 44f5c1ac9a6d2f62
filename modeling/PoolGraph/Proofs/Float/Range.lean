import Mathlib.Tactic.Use
import PoolGraph.Proofs.Float.Rounding

/-!
# The range of natural numbers

Which natural numbers have a finite number nearest to them.  A significand rounds below an even
bound exactly where it lies more than half a step below it (`roundShift_lt_iff`), so infinity
begins half a step past the largest finite number: at `2 ^ 1024 - 2 ^ 970` in double precision
(`isFinite_ofNat`), and in single precision, since a number is rounded twice on its way there, half
a step of double precision earlier, at `2 ^ 128 - 2 ^ 103 - 2 ^ 74` (`isFinite_narrow_ofNat`).
-/

namespace PoolGraph

namespace FloatFormat

/-! ### Rounded significands -/

/-- A quotient rounds below an even bound where it lies more than half a step below the bound. -/
theorem roundShift_lt_iff {m k b : Nat} (even : b % 2 = 0) :
  roundShift m k < b ↔ 2 * m + 2 ^ k < 2 * b * 2 ^ k
  := by
  have whole := Nat.div_add_mod m (2 ^ k)
  have rest := Nat.mod_lt m (Nat.two_pow_pos k)
  unfold roundShift
  dsimp only
  generalize 2 ^ k = step at whole rest ⊢
  generalize m / step = floor at whole ⊢
  generalize m % step = r at whole rest ⊢
  rw [Nat.mul_assoc, Nat.mul_comm b]
  obtain far | near | past : floor + 2 ≤ b ∨ floor + 1 = b ∨ b ≤ floor := by omega
  · have room := Nat.mul_le_mul_left step far
    rw [Nat.mul_add] at room
    split <;> omega
  · -- the quotient is odd, so that a tie goes up to the bound
    subst near
    have odd : floor % 2 = 1 := by omega
    rw [odd, Nat.mul_add, Nat.mul_one]
    simp only [Bool.or_eq_true, decide_eq_true_eq, Bool.and_eq_true, beq_iff_eq, and_true]
    split <;> omega
  · have room := Nat.mul_le_mul_left step past
    split <;> omega

/-- The significand of a number, as many bits as the hidden bit and the fraction take. -/
def significand (F : FloatFormat) (m : Nat) : Nat :=
  roundShift (m * 2 ^ F.fractionBits) m.log2

/-- A significand has its hidden bit, and at most one bit more from a carry. -/
theorem significand_bounds (F : FloatFormat) {m : Nat} (hm : m ≠ 0) :
  2 ^ F.fractionBits ≤ F.significand m ∧ F.significand m ≤ 2 * 2 ^ F.fractionBits
  := by
  have atLeast : 2 ^ m.log2 * 2 ^ F.fractionBits ≤ m * 2 ^ F.fractionBits :=
    Nat.mul_le_mul_right _ (Nat.log2_self_le hm)
  have below : m * 2 ^ F.fractionBits < 2 * 2 ^ F.fractionBits * 2 ^ m.log2 := by
    rw [Nat.mul_right_comm]
    apply Nat.mul_lt_mul_of_pos_right _ (Nat.two_pow_pos _)
    rw [← Nat.pow_succ']
    apply Nat.lt_log2_self
  have lower : 2 ^ F.fractionBits ≤ m * 2 ^ F.fractionBits / 2 ^ m.log2 := by
    rw [Nat.le_div_iff_mul_le (Nat.two_pow_pos _), Nat.mul_comm]
    apply atLeast
  have upper : m * 2 ^ F.fractionBits / 2 ^ m.log2 < 2 * 2 ^ F.fractionBits := by
    rw [Nat.div_lt_iff_lt_mul (Nat.two_pow_pos _)]
    apply below
  unfold significand roundShift
  dsimp only
  split <;> omega

/-- The pattern of a number with room in the exponent, whatever the number of its bits. -/
theorem nearest_eq_min (F : FloatFormat) {m : Nat} {q : Int} (hm : m ≠ 0)
    (low : F.leastExponent ≤ q + m.log2 - F.fractionBits) :
  F.nearest m q = min (F.significand m
    + (q + m.log2 - F.fractionBits - F.leastExponent).toNat * 2 ^ F.fractionBits) F.infinity
  := by
  have exponent : max (q + (m.log2 : Int) - F.fractionBits) F.leastExponent
      = q + m.log2 - F.fractionBits := by omega
  simp only [nearest, hm, if_false, exponent]
  congr 2
  unfold significand
  by_cases fits : m.log2 ≤ F.fractionBits
  · have shift : (q - (q + (m.log2 : Int) - F.fractionBits)).toNat = F.fractionBits - m.log2 := by
      omega
    rw [if_pos (by omega), shift, roundShift_exact m fits]
  · have shift : (q + (m.log2 : Int) - F.fractionBits - q).toNat = m.log2 - F.fractionBits := by
      omega
    rw [if_neg (by omega), shift, ← roundShift_scale m F.fractionBits, Nat.sub_add_cancel (by omega)]

/-- Such a pattern is finite below the top exponent, and at the top exponent if its significand
does not carry. -/
theorem nearest_lt_infinity_iff (F : FloatFormat) {m : Nat} {q : Int} (hm : m ≠ 0)
    (low : F.leastExponent ≤ q + m.log2 - F.fractionBits) :
  F.nearest m q < F.infinity
    ↔ (q + m.log2 - F.fractionBits - F.leastExponent).toNat + 3 < 2 ^ F.exponentBits
      ∨ (q + m.log2 - F.fractionBits - F.leastExponent).toNat + 3 = 2 ^ F.exponentBits
        ∧ F.significand m < 2 * 2 ^ F.fractionBits
  := by
  obtain ⟨atLeast, atMost⟩ := F.significand_bounds hm
  have positive : 0 < 2 ^ F.fractionBits := Nat.two_pow_pos _
  rw [F.nearest_eq_min hm low, infinity]
  generalize (q + m.log2 - F.fractionBits - F.leastExponent).toNat = t
  generalize 2 ^ F.fractionBits = unit at atLeast atMost positive ⊢
  generalize 2 ^ F.exponentBits = top
  obtain below | rfl | past : t + 3 < top ∨ top = t + 3 ∨ top < t + 3 := by omega
  · have room : (t + 3) * unit ≤ (top - 1) * unit := Nat.mul_le_mul_right unit (by omega)
    rw [Nat.add_mul] at room
    omega
  · rw [show t + 3 - 1 = t + 2 by omega, Nat.add_mul]
    omega
  · have room : (top - 1) * unit ≤ (t + 1) * unit := Nat.mul_le_mul_right unit (by omega)
    rw [Nat.add_mul] at room
    omega

end FloatFormat

namespace Binary64

open FloatFormat

/-! ### Double precision -/

/-- The pattern of a natural number has no sign. -/
theorem magnitude_ofNat (n : Nat) :
  (ofNat n).magnitude = binary64.nearest n 0
  := by
  have top : binary64.infinity < binary64.signBit := by decide
  apply magnitude_mk (Nat.lt_of_le_of_lt (binary64.nearest_le_infinity n 0) top) false

/-- A natural number has a finite pattern below the top exponent, and at the top exponent if its
significand does not carry. -/
theorem nearest_lt_infinity_iff_log2 {n : Nat} (hn : n ≠ 0) :
  binary64.nearest n 0 < binary64.infinity
    ↔ n.log2 < 1023 ∨ n.log2 = 1023 ∧ binary64.significand n < 2 ^ 53
  := by
  have least : binary64.leastExponent = -1074 := by decide
  have fraction : binary64.fractionBits = 52 := rfl
  have exponent : 2 ^ binary64.exponentBits = 2048 := by decide
  have low : binary64.leastExponent ≤ 0 + (n.log2 : Int) - binary64.fractionBits := by omega
  rw [binary64.nearest_lt_infinity_iff hn low, exponent, least, fraction]
  omega

/-- Infinity begins half a step past the largest number of double precision, which is
`(2 ^ 53 - 1) * 2 ^ 971`. -/
theorem isFinite_ofNat (n : Nat) :
  (ofNat n).isFinite = true ↔ n < (2 ^ 54 - 1) * 2 ^ 970
  := by
  simp only [isFinite, decide_eq_true_eq, magnitude_ofNat]
  have positive : 0 < 2 ^ 970 := Nat.two_pow_pos 970
  by_cases hn : n = 0
  · subst hn
    apply iff_of_true (by decide)
    omega
  have power (k : Nat) : 2 ^ (k + 970) = 2 ^ k * 2 ^ 970 := Nat.pow_add 2 k 970
  rw [nearest_lt_infinity_iff_log2 hn]
  obtain low | top | high : n.log2 < 1023 ∨ n.log2 = 1023 ∨ 1024 ≤ n.log2 := by omega
  · have small : 2 ^ (n.log2 + 1) ≤ 2 ^ (53 + 970) := by
      apply Nat.pow_le_pow_right (by decide)
      omega
    have below := Nat.lt_of_lt_of_le Nat.lt_log2_self small
    rw [power 53] at below
    omega
  · have carry : binary64.significand n < 2 ^ 53 ↔ _ := roundShift_lt_iff (by decide)
    have fraction : binary64.fractionBits = 52 := rfl
    rw [carry, top, fraction, show 1023 = 53 + 970 from rfl, power 53]
    omega
  · have large : 2 ^ (54 + 970) ≤ 2 ^ n.log2 := by
      apply Nat.pow_le_pow_right (by decide)
      omega
    have above := Nat.le_trans large (Nat.log2_self_le hn)
    rw [power 54] at above
    omega

/-! ### Single precision -/

/-- What a finite pattern of a natural number stands for: its significand at its exponent, or the
next power of two if the significand carries. -/
theorem parts_nearest_ofNat {n : Nat} (hn : n ≠ 0)
    (finite : binary64.nearest n 0 < binary64.infinity) :
  binary64.parts (binary64.nearest n 0)
    = if binary64.significand n < 2 ^ 53 then (binary64.significand n, (n.log2 : Int) - 52)
      else (2 ^ 52, (n.log2 : Int) - 51)
  := by
  have least : binary64.leastExponent = -1074 := by decide
  have fraction : binary64.fractionBits = 52 := rfl
  have low : binary64.leastExponent ≤ 0 + (n.log2 : Int) - binary64.fractionBits := by omega
  have shift : (0 + (n.log2 : Int) - (52 : Nat) - -1074).toNat = n.log2 + 1022 := by omega
  have bounds := binary64.significand_bounds hn
  have pattern := binary64.nearest_eq_min hn low
  rw [least, fraction, shift] at pattern
  rw [fraction] at bounds
  have whole : binary64.nearest n 0 = binary64.significand n + (n.log2 + 1022) * 2 ^ 52 := by omega
  rw [whole, parts, least, fraction]
  generalize binary64.significand n = s at bounds ⊢
  by_cases carry : s < 2 ^ 53
  · have exponent : (s + (n.log2 + 1022) * 2 ^ 52) / 2 ^ 52 = n.log2 + 1023 := by omega
    have bits : (s + (n.log2 + 1022) * 2 ^ 52) % 2 ^ 52 = s - 2 ^ 52 := by omega
    simp only [exponent, bits, carry, Nat.succ_ne_zero, if_false, if_true, Prod.mk.injEq]
    omega
  · have exponent : (s + (n.log2 + 1022) * 2 ^ 52) / 2 ^ 52 = n.log2 + 1024 := by omega
    have bits : (s + (n.log2 + 1022) * 2 ^ 52) % 2 ^ 52 = 0 := by omega
    simp only [exponent, bits, carry, Nat.succ_ne_zero, if_false, Prod.mk.injEq, true_and]
    omega

/-- A number of 53 bits rounds to a finite number of single precision below the top exponent, and
at the top exponent if its significand does not carry. -/
theorem nearest_binary32_lt_infinity_iff {m : Nat} {q : Int} (hm : m.log2 = 52) (low : -52 ≤ q) :
  binary32.nearest m q < binary32.infinity ↔ q < 75 ∨ q = 75 ∧ m < 2 ^ 53 - 2 ^ 28
  := by
  have least : binary32.leastExponent = -149 := by decide
  have fraction : binary32.fractionBits = 23 := rfl
  have exponent : 2 ^ binary32.exponentBits = 256 := by decide
  have positive : m ≠ 0 := by
    rintro rfl
    cases hm
  have carry : binary32.significand m < 2 * 2 ^ 23 ↔ _ := roundShift_lt_iff (by decide)
  rw [binary32.nearest_lt_infinity_iff positive (by omega), exponent, least, fraction, carry, hm,
    fraction]
  omega

/-- Rounding to single precision keeps a number finite below the top exponent, and at the top
exponent if the significand does not round up to the next power of two. -/
theorem isFinite_narrow_ofNat_iff_log2 {n : Nat} (hn : n ≠ 0) :
  (ofNat n).narrow.isFinite = true
    ↔ n.log2 < 127 ∨ n.log2 = 127 ∧ binary64.significand n < 2 ^ 53 - 2 ^ 28
  := by
  have bounds := binary64.significand_bounds hn
  rw [show binary64.fractionBits = 52 from rfl] at bounds
  simp only [Binary32.isFinite, decide_eq_true_eq, magnitude_narrow, magnitude_ofNat]
  by_cases finite : binary64.nearest n 0 < binary64.infinity
  · rw [narrowedMagnitude, if_neg (by omega), if_neg (by omega), parts_nearest_ofNat hn finite]
    split
    · next whole =>
      have bits : (binary64.significand n).log2 = 52 := by
        apply (Nat.log2_eq_iff (by omega)).mpr
        omega
      rw [nearest_binary32_lt_infinity_iff bits (by omega)]
      omega
    · next carry =>
      have bits : (2 ^ 52).log2 = 52 := by decide
      rw [nearest_binary32_lt_infinity_iff bits (by omega)]
      omega
  · have same : binary64.nearest n 0 = binary64.infinity := by
      have := binary64.nearest_le_infinity n 0
      omega
    rw [nearest_lt_infinity_iff_log2 hn] at finite
    rw [same, narrowedMagnitude, if_neg (Nat.lt_irrefl _), if_pos rfl]
    omega

/-- On the way to single precision infinity begins half a step of double precision earlier than
half a step past the largest number. -/
theorem isFinite_narrow_ofNat (n : Nat) :
  (ofNat n).narrow.isFinite = true ↔ n < 2 ^ 128 - 2 ^ 103 - 2 ^ 74
  := by
  by_cases hn : n = 0
  · subst hn
    decide
  have atLeast := Nat.log2_self_le hn
  have below := @Nat.lt_log2_self n
  rw [isFinite_narrow_ofNat_iff_log2 hn]
  obtain low | top | high : n.log2 < 127 ∨ n.log2 = 127 ∨ 128 ≤ n.log2 := by omega
  · have small : 2 ^ (n.log2 + 1) ≤ 2 ^ 127 := Nat.pow_le_pow_right (by decide) low
    omega
  · have carry : binary64.significand n < 2 ^ 53 - 2 ^ 28 ↔ _ := roundShift_lt_iff (by decide)
    have fraction : binary64.fractionBits = 52 := rfl
    rw [carry, top, fraction]
    rw [top] at below atLeast
    omega
  · have large : 2 ^ 128 ≤ 2 ^ n.log2 := Nat.pow_le_pow_right (by decide) high
    omega

end Binary64

end PoolGraph
