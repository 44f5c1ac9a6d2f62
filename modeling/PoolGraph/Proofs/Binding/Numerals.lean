import PoolGraph.Proofs.Binding.Types
import PoolGraph.Proofs.Float.Range
import PoolGraph.Proofs.Text.Decimal

/-!
# Numbers of a type

`FieldType.Covers` says which natural numbers a type has room for, by powers of two alone.  The
binder makes a value of exactly these numbers (`exists_numeral?_iff_covers`), and of a decimal
numeral exactly if its number is one of them.
-/

namespace PoolGraph

/-- Whether a natural number is in the range of a type: less than the half or the whole of a power
of two for the integers, and less than what rounds to infinity for the floating-point numbers.  The
bound of single precision has half a step of double precision less than half of one of its own
steps, since numbers are rounded twice. -/
def FieldType.Covers : FieldType → Nat → Prop
  | .integer width false, n => n < 2 ^ (width.bits - 1)
  | .integer width true, n => n < 2 ^ width.bits
  | .float .w32, n => n < 2 ^ 128 - 2 ^ 103 - 2 ^ 74
  | .float .w64, n => n < (2 ^ 54 - 1) * 2 ^ 970
  | _, _ => False

/-- The largest number of an integer type is the last one below its power of two. -/
theorem IntWidth.le_maxValue_iff {width : IntWidth} {unsigned : Bool} {n : Nat} :
  n ≤ width.maxValue unsigned ↔ (FieldType.integer width unsigned).Covers n
  := by
  cases unsigned with
  | false =>
    have positive : 0 < 2 ^ (width.bits - 1) := Nat.two_pow_pos _
    apply Nat.le_sub_one_iff_lt positive
  | true =>
    have positive : 0 < 2 ^ width.bits := Nat.two_pow_pos _
    apply Nat.le_sub_one_iff_lt positive

namespace Binding

variable {type : FieldType} {n : Nat}

/-- The binder makes a value of a number exactly if the number is in the range of the type. -/
theorem exists_numeral?_iff_covers :
  (∃ value, numeral? type n = some value) ↔ type.Covers n
  := by
  rcases type with ⟨width, _ | _⟩ | (_ | _) | _ | _ | _ | _
  case integer.false | integer.true =>
    rw [← IntWidth.le_maxValue_iff]
    simp [numeral?]
  case float.w32 =>
    apply Iff.trans _ (Binary64.isFinite_narrow_ofNat n)
    simp [numeral?]
  case float.w64 =>
    apply Iff.trans _ (Binary64.isFinite_ofNat n)
    simp [numeral?]
  all_goals simp [numeral?, FieldType.Covers]

/-- A decimal numeral in the range of a type is what the binder reads as a value of the type. -/
theorem numeral?_of_decimal {digits : String} (decimal : Text.Decimal digits n)
    (covers : type.Covers n) :
  ∃ value, Text.digitsValue? digits = some n ∧ numeral? type n = some value
  := by
  obtain ⟨value, hvalue⟩ := exists_numeral?_iff_covers.mpr covers
  use value
  constructor
  · apply Text.digitsValue?_eq_some_iff.mpr decimal
  · apply hvalue

end Binding

end PoolGraph
