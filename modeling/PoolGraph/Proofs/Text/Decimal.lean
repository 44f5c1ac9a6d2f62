import Mathlib.Data.Nat.Digits.Defs
import Mathlib.Tactic.Use
import PoolGraph.Text.Digits

/-!
# Decimal numerals

`Text.Decimal` says which number a text of decimal digits spells.  It does not mention the reader
of such texts: the number is the sum of the digits, each times its power of ten.
`digitsValue?_eq_some_iff` says that the reader finds this number, and no number in any other text.
-/

namespace PoolGraph.Text

/-- Whether the characters of a text are the decimal digits of a number, at least one, the most
significant one first.  There may be zeros in front. -/
def Decimal (text : String) (n : Nat) : Prop :=
  ∃ digits : List Nat, digits ≠ [] ∧ (∀ d ∈ digits, d < 10)
    ∧ text.toList = digits.map Nat.digitChar ∧ n = Nat.ofDigits 10 digits.reverse

/-! ### Single digits -/

/-- The character of a digit is read as this digit. -/
theorem isDigit_digitChar {d : Nat} (h : d < 10) :
  (Nat.digitChar d).isDigit = true ∧ (Nat.digitChar d).toNat - '0'.toNat = d
  := by
  decide +revert

/-- A character that is read as a digit is the character of this digit. -/
theorem exists_digitChar {c : Char} (h : c.isDigit = true) :
  ∃ d < 10, c = Nat.digitChar d
  := by
  simp only [Char.isDigit, Bool.and_eq_true, decide_eq_true_eq] at h
  have low : 48 ≤ c.toNat := h.1
  have high : c.toNat ≤ 57 := h.2
  use c.toNat - 48, by omega
  apply Char.toNat_inj.mp
  rw [Nat.toNat_digitChar_of_lt_ten (by omega)]
  omega

/-! ### Runs of digits -/

/-- Reading the characters of some digits appends these digits to those read before. -/
theorem digitsOnto_map_digitChar {digits : List Nat} (small : ∀ d ∈ digits, d < 10) (high : Nat) :
  digitsOnto high (digits.map Nat.digitChar) = some (Nat.ofDigits 10 (digits.reverse ++ [high]))
  := by
  induction digits generalizing high with
  | nil => rw [List.map_nil, digitsOnto, List.reverse_nil, List.nil_append, Nat.ofDigits_singleton]
  | cons d digits ih =>
    obtain ⟨first, others⟩ := List.forall_mem_cons.mp small
    obtain ⟨digit, same⟩ := isDigit_digitChar first
    have next : Nat.ofDigits 10 [10 * high + d] = Nat.ofDigits 10 [d, high] := by
      rw [Nat.ofDigits_singleton, Nat.ofDigits_cons, Nat.ofDigits_singleton, Nat.add_comm]
    rw [List.map_cons, digitsOnto, if_pos digit, same, ih others, Nat.ofDigits_append, next,
      ← Nat.ofDigits_append, List.reverse_cons, List.append_assoc]
    rfl

/-- Reading the characters of some digits from the first one on gives the number they spell. -/
theorem digitsOnto_zero_map_digitChar {digits : List Nat} (small : ∀ d ∈ digits, d < 10) :
  digitsOnto 0 (digits.map Nat.digitChar) = some (Nat.ofDigits 10 digits.reverse)
  := by
  rw [digitsOnto_map_digitChar small, Nat.ofDigits_append_zero]

/-- What is read as a number is a run of the characters of digits. -/
theorem exists_digits_of_digitsOnto {high n : Nat} {characters : List Char}
    (h : digitsOnto high characters = some n) :
  ∃ digits : List Nat, (∀ d ∈ digits, d < 10) ∧ characters = digits.map Nat.digitChar
  := by
  induction characters generalizing high with
  | nil =>
    use [], List.forall_mem_nil _
    rfl
  | cons c rest ih =>
    rw [digitsOnto] at h
    obtain ⟨digit, h⟩ := Option.ite_none_right_eq_some.mp h
    obtain ⟨d, small, rfl⟩ := exists_digitChar digit
    obtain ⟨digits, all, rfl⟩ := ih h
    use d :: digits, List.forall_mem_cons.mpr ⟨small, all⟩
    rfl

/-- The reader finds the number that a text spells, and none if the text is not a run of digits. -/
theorem digitsValue?_eq_some_iff {text : String} {n : Nat} :
  digitsValue? text = some n ↔ Decimal text n
  := by
  rw [digitsValue?, Option.ite_none_left_eq_some, String.isEmpty_iff, ← String.toList_eq_nil_iff]
  constructor
  · rintro ⟨nonempty, h⟩
    obtain ⟨digits, small, same⟩ := exists_digits_of_digitsOnto h
    use digits
    constructor
    · rintro rfl
      apply nonempty same
    use small, same
    rw [same, digitsOnto_zero_map_digitChar small] at h
    symm
    apply Option.some.inj h
  · rintro ⟨digits, nonempty, small, same, rfl⟩
    rw [same, digitsOnto_zero_map_digitChar small]
    constructor
    · rwa [List.map_eq_nil_iff]
    · rfl

/-- A text spells at most one number. -/
theorem Decimal.unique {text : String} {n n' : Nat} (h : Decimal text n) (h' : Decimal text n') :
  n = n'
  := Option.some.inj ((digitsValue?_eq_some_iff.mpr h).symm.trans (digitsValue?_eq_some_iff.mpr h'))

/-- Zeros in front change nothing. -/
example : digitsValue? "00255" = some 255 := by decide

end PoolGraph.Text
