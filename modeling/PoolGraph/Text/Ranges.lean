/-!
# Ranges of code points

`inRanges ranges c` says that the code point of `c` lies in one of the closed ranges.
-/

namespace PoolGraph.Text

/-- Whether the code point of `c` lies in one of the closed ranges. -/
def inRanges (ranges : List (Nat × Nat)) (c : Char) : Bool :=
  ranges.any fun range => range.1 ≤ c.toNat && c.toNat ≤ range.2

end PoolGraph.Text
