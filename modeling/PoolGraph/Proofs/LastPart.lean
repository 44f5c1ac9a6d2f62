import Mathlib.Data.List.TakeWhile
import Mathlib.Tactic.Use

/-!
# The last part of a list

`lastPart` is what stands behind the last separator of a list: the last line of a text, or the name
at the end of a path.
-/

namespace PoolGraph

/-- The items behind the last one that equals `c`, or all if none does. -/
def lastPart [BEq α] (c : α) (xs : List α) : List α :=
  (xs.reverse.takeWhile (· != c)).reverse

section

variable [BEq α] [LawfulBEq α] {c : α}

theorem dropWhile_bne (c : α) (xs : List α) :
  xs.dropWhile (· != c) = [] ∨ ∃ more, xs.dropWhile (· != c) = c :: more
  := by
  induction xs with
  | nil => exact .inl rfl
  | cons x xs ih =>
    rw [List.dropWhile_cons]
    split
    · apply ih
    · next same =>
      rw [bne_iff_ne, not_not] at same
      exact .inr ⟨xs, by rw [same]⟩

/-- A list falls into a front that ends with `c`, if it is not empty, and the last part. -/
theorem exists_lastPart (c : α) (xs : List α) :
  ∃ front, xs = front ++ lastPart c xs ∧ c ∉ lastPart c xs
    ∧ (front = [] ∨ ∃ more, front = more ++ [c])
  := by
  use (xs.reverse.dropWhile (· != c)).reverse
  constructor
  · rw [lastPart, ← List.reverse_append, List.takeWhile_append_dropWhile, List.reverse_reverse]
  constructor
  · intro inside
    have apart := List.mem_takeWhile_imp (List.mem_reverse.mp inside)
    rw [bne_self_eq_false] at apart
    cases apart
  · rcases dropWhile_bne c xs.reverse with absent | ⟨more, begins⟩
    · exact .inl (by rw [absent, List.reverse_nil])
    · exact .inr ⟨more.reverse, by rw [begins, List.reverse_cons]⟩

/-- What has no `c` belongs to the last part. -/
theorem lastPart_append (xs : List α) {line : List α} (absent : c ∉ line) :
  lastPart c (xs ++ line) = lastPart c xs ++ line
  := by
  have all : ∀ x ∈ line.reverse, (x != c) = true := by
    intro x hx
    apply bne_iff_ne.mpr
    rintro rfl
    apply absent (List.mem_reverse.mp hx)
  rw [lastPart, List.reverse_append, List.takeWhile_append_of_pos all, List.reverse_append,
    List.reverse_reverse, lastPart]

theorem lastPart_concat (xs : List α) (c : α) :
  lastPart c (xs ++ [c]) = []
  := by
  rw [lastPart, List.reverse_concat, List.takeWhile_cons, bne_self_eq_false]
  rfl

end

end PoolGraph
