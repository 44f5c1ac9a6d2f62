/-!
# Runs of digits

`digitsValue?` reads ASCII digits as a number in base ten.
-/

namespace PoolGraph.Text

/-- The number that the digits behind those of `high` spell. -/
def digitsOnto (high : Nat) : List Char → Option Nat
  | [] => some high
  | c :: rest => if c.isDigit then digitsOnto (10 * high + (c.toNat - '0'.toNat)) rest else none

/-- The number that a text of at least one digit and nothing else spells. -/
def digitsValue? (text : String) : Option Nat :=
  if text.isEmpty then none else digitsOnto 0 text.toList

end PoolGraph.Text
