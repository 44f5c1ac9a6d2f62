import PoolGraph.Numbers

/-!
# Counts and index widths

`maxCount` bounds every count of the binary form, and `indexWidth` is the number of bytes
that a reference takes, chosen by the size of the pool that it points into.
-/

namespace PoolGraph

/-- The largest pool, list or string length that the binary form can carry. -/
def maxCount : Nat := 2 ^ 31 - 1

/-- The number of bytes of a reference into a pool of `cardinality` objects.  A pool of at
most one object needs none, since the only possible index is 0. -/
def indexWidth (cardinality : Nat) : Nat :=
  if cardinality ≤ 1 then 0
  else if cardinality ≤ 2 ^ 8 then 1
  else if cardinality ≤ 2 ^ 16 then 2
  else 4

/-- Every index below a countable cardinality fits into the width chosen for it. -/
theorem lt_pow_indexWidth {index cardinality : Nat} (hi : index < cardinality)
    (hc : cardinality ≤ 2 ^ 32) :
  index < 256 ^ indexWidth cardinality
  := by
  unfold indexWidth
  split
  · omega
  · split
    · omega
    · split <;> omega

end PoolGraph
